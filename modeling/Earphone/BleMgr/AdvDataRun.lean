import Earphone.BleMgr.AdvData
import Mathlib.Data.List.Rotate

namespace BleAdvData

namespace World

variable {w : World}

theorem free_not_mem (h : w.free memory = some handle) :
    handle ∉ w.advDataQueue.map (·.handle) := by
  unfold free at h
  have hall := (Option.filter_eq_some_iff.mp h).2
  rw [List.all_eq_true] at hall
  rw [List.mem_map]
  rintro ⟨item, hitem, rfl⟩
  simpa using hall item hitem

theorem step_add {ppHandle : Bool} {advData scanResp : Data} {memory : Option Nat} :
    w.step (.add ppHandle advData scanResp memory) = w ∨
      ∃ item : AdvDataItem, item.handle ∉ w.advDataQueue.map (·.handle) ∧
        item.advData ∉ w.advDataQueue.map (·.advData) ∧
        w.step (.add ppHandle advData scanResp memory) =
          checkTimer { w with advDataQueue := w.advDataQueue ++ [item] } := by
  have hstep : w.step (.add ppHandle advData scanResp memory) =
      (w.add ppHandle advData scanResp (w.free memory)).1 := rfl
  rw [hstep]
  unfold add
  split
  . exact .inl rfl
  cases hfind : w.advDataQueue.find? (·.advData == advData) with
  | some item => exact .inl rfl
  | none =>
    cases hfree : w.free memory with
    | none => exact .inl rfl
    | some handle =>
      refine .inr ⟨⟨handle, advData, scanResp⟩, free_not_mem hfree, ?_, rfl⟩
      rw [List.mem_map]
      rintro ⟨item, hitem, heq⟩
      have hnot := List.find?_eq_none.mp hfind item hitem
      exact hnot (beq_iff_eq.mpr heq)

theorem step_del {handle : Option Nat} : w.step (.del handle) = w ∧
      (∀ h, handle = some h → h ∉ w.advDataQueue.map (·.handle)) ∨
    ∃ h, handle = some h ∧ h ∈ w.advDataQueue.map (·.handle) ∧
      w.step (.del handle) =
        checkTimer { w with advDataQueue := w.advDataQueue.filter (·.handle != h) } := by
  have hstep : w.step (.del handle) = (w.del handle).1 := rfl
  rw [hstep]
  unfold del
  cases handle with
  | none => exact .inl ⟨rfl, nofun⟩
  | some h =>
    have hmem : w.advDataQueue.any (·.handle == h) = true ↔ h ∈ w.advDataQueue.map (·.handle) := by
      simp [List.any_eq_true, List.mem_map]
    dsimp only
    split
    . next hany => exact .inr ⟨h, rfl, hmem.mp hany, rfl⟩
    . next hany =>
      refine .inl ⟨rfl, ?_⟩
      rintro _ ⟨⟩ hin
      exact hany (hmem.mpr hin)

theorem timerCallback_cases : (w.advDataQueue[w.timerCallback.currIdx.toNat]? = none ∧
      w.timerCallback = { w with currIdx := w.timerCallback.currIdx }) ∨
    ∃ item, w.advDataQueue[w.timerCallback.currIdx.toNat]? = some item ∧
      w.timerCallback = setData { w with currIdx := w.timerCallback.currIdx } item := by
  have hidx : ∃ idx, w.timerCallback.currIdx = idx ∧ w.timerCallback =
      w.advDataQueue[idx.toNat]?.elim { w with currIdx := idx } (setData { w with currIdx := idx }) := by
    obtain ⟨idx, hidx⟩ : ∃ idx, idx =
        if (w.currIdx + 1).toNat ≥ w.advDataQueue.length then 0 else w.currIdx + 1 := ⟨_, rfl⟩
    refine ⟨idx, ?_, ?_⟩
    all_goals
      unfold timerCallback
      dsimp only
      rw [← hidx]
      cases w.advDataQueue[idx.toNat]? <;> rfl
  obtain ⟨idx, hidx, heq⟩ := hidx
  rw [hidx]
  cases hitem : w.advDataQueue[idx.toNat]? with
  | none =>
    rw [hitem] at heq
    exact .inl ⟨rfl, heq⟩
  | some item =>
    rw [hitem] at heq
    exact .inr ⟨item, rfl, heq⟩

theorem timerCallback_same : SameQueue w w.timerCallback ∧ w.timerCallback.timer = w.timer ∧
    w.timerCallback.currState = w.currState ∧ w.timerCallback.mgrState = w.mgrState := by
  obtain ⟨-, heq⟩ | ⟨item, -, heq⟩ := @timerCallback_cases w <;> rw [heq] <;>
    exact ⟨⟨rfl, rfl, rfl⟩, rfl, rfl, rfl⟩

theorem SameQueue.inv (hsame : SameQueue w w') (htold : w'.currState = w'.mgrState)
    (hwanted : w'.mgrState = .enabled → w.preferState = .enabled)
    (hrequest : w'.mgrState = .enabled → w.advDataQueue ≠ [])
    (hhandles : (w.advDataQueue.map (·.handle)).Nodup)
    (hdata : (w.advDataQueue.map (·.advData)).Nodup) : w'.Inv where
  told := htold
  wanted := by
    rw [hsame.prefer]
    exact hwanted
  request := by
    unfold RequestKept
    rw [hsame.queue]
    exact hrequest
  handles := by
    rw [hsame.queue]
    exact hhandles
  data := by
    rw [hsame.queue]
    exact hdata

section

variable (h : w.Inv)

include h

theorem Inv.checkTimer (hhandles : (queue.map (·.handle)).Nodup)
    (hdata : (queue.map (·.advData)).Nodup) :
    (checkTimer { w with advDataQueue := queue }).Inv := by
  obtain ⟨hsame, -, htold, hmgr, -, -⟩ :=
    @checkTimer_spec { w with advDataQueue := queue } h.told h.wanted
  exact hsame.inv htold (fun henabled => (hmgr.mp henabled).1)
    (fun henabled => (hmgr.mp henabled).2) hhandles hdata

theorem Inv.checkState : (checkState { w with preferState := prefer }).Inv := by
  obtain ⟨hsame, -, htold, hmgr, -, -⟩ := @checkState_spec { w with preferState := prefer } h.told
  exact hsame.inv htold (fun henabled => (hmgr.mp henabled).1)
    (fun henabled => (hmgr.mp henabled).2.elim h.request id) h.handles h.data

theorem Inv.step (op : Op) : (w.step op).Inv := by
  cases op with
  | add ppHandle advData scanResp memory =>
    obtain heq | ⟨item, hhandle, hdata, heq⟩ := @step_add w ppHandle advData scanResp memory
    . rw [heq]
      exact h
    . rw [heq]
      refine h.checkTimer ?_ ?_
      . rw [List.map_append]
        exact List.nodup_append.mpr ⟨h.handles, by simp, by simpa using hhandle⟩
      . rw [List.map_append]
        exact List.nodup_append.mpr ⟨h.data, by simp, by simpa using hdata⟩
  | del handle =>
    obtain ⟨heq, -⟩ | ⟨handle, -, -, heq⟩ := @step_del w handle
    . rw [heq]
      exact h
    . rw [heq]
      exact h.checkTimer (h.handles.sublist (List.filter_sublist.map _))
        (h.data.sublist (List.filter_sublist.map _))
  | enable => exact h.checkState
  | disable => exact h.checkState
  | connInfo => exact h.checkState
  | disconnected => exact h.checkState
  | expiry =>
    obtain ⟨hsame, -, hcurr, hmgr⟩ := @timerCallback_same w
    have hstep : w.step .expiry = w.timerCallback := rfl
    rw [hstep]
    exact hsame.inv (hcurr.trans (h.told.trans hmgr.symm))
      (fun henabled => h.wanted (hmgr.symm.trans henabled))
      (fun henabled => h.request (hmgr.symm.trans henabled)) h.handles h.data
  | stopped =>
    obtain ⟨hcurr, hmgr⟩ := mgrDisable_state h.told
    have hstep : w.step .stopped = w.mgrDisable := rfl
    rw [hstep]
    refine mgrDisable_same.inv (hcurr.trans hmgr.symm) ?_ ?_ h.handles h.data <;>
      rw [hmgr] <;> nofun

theorem timerKept_checkState :
    (checkState { w with preferState := prefer }).TimerKept ↔
      (timerAfter { w with preferState := prefer } = true ↔
        prefer = .enabled ∧ 2 ≤ w.advDataQueue.length) := by
  obtain ⟨hsame, htimer, -⟩ := @checkState_spec { w with preferState := prefer } h.told
  unfold TimerKept
  rw [htimer, hsame.prefer, hsame.queue]

theorem timerAfter_kept (hkept : w.TimerKept)
    (hprefer : prefer = .enabled ∨ prefer = w.preferState) :
    timerAfter { w with preferState := prefer } = true ↔
      prefer = .enabled ∧ 2 ≤ w.advDataQueue.length := by
  unfold TimerKept at hkept
  unfold timerAfter
  dsimp only
  cases prefer with
  | enabled =>
    split
    . next hcurr =>
      rw [h.wanted (h.told.symm.trans hcurr.symm)] at hkept
      exact hkept
    . rw [if_pos rfl, Bool.or_eq_true, decide_eq_true_eq, hkept]
      exact ⟨fun hor => ⟨rfl, hor.elim (·.2) id⟩, fun hand => .inr hand.2⟩
  | disabled =>
    obtain hprefer | hprefer := hprefer
    . cases hprefer
    rw [← hprefer] at hkept
    split
    . exact hkept
    . rw [if_neg (by decide)]
      exact iff_of_false Bool.false_ne_true fun hand => absurd hand.1 (by decide)

theorem timerKept_checkTimer : (checkTimer { w with advDataQueue := queue }).TimerKept :=
  (@checkTimer_spec { w with advDataQueue := queue } h.told h.wanted).2.1

theorem timerKept_step (hkept : w.TimerKept) (op : Op) :
    (w.step op).TimerKept ↔ w.TimerSafe op := by
  cases op with
  | add ppHandle advData scanResp memory =>
    refine iff_of_true ?_ trivial
    obtain heq | ⟨item, -, -, heq⟩ := @step_add w ppHandle advData scanResp memory
    . rw [heq]
      exact hkept
    . rw [heq]
      exact timerKept_checkTimer h
  | del handle =>
    refine iff_of_true ?_ trivial
    obtain ⟨heq, -⟩ | ⟨handle, -, -, heq⟩ := @step_del w handle
    . rw [heq]
      exact hkept
    . rw [heq]
      exact timerKept_checkTimer h
  | enable =>
    exact iff_of_true ((timerKept_checkState h).mpr (timerAfter_kept h hkept (.inl rfl))) trivial
  | connInfo =>
    exact iff_of_true ((timerKept_checkState h).mpr (timerAfter_kept h hkept (.inr rfl))) trivial
  | disconnected =>
    exact iff_of_true ((timerKept_checkState h).mpr (timerAfter_kept h hkept (.inr rfl))) trivial
  | disable =>
    -- the timer is not stopped when the advertising is not running
    refine (timerKept_checkState h).trans ?_
    unfold TimerSafe timerAfter
    unfold TimerKept at hkept
    dsimp only
    rw [h.told]
    cases hmgr : w.mgrState with
    | disabled =>
      rw [if_pos rfl, hkept]
      simp
    | enabled =>
      rw [if_neg (by decide), if_neg (by decide)]
      simp
  | expiry =>
    refine iff_of_true ?_ trivial
    obtain ⟨hsame, htimer, -⟩ := @timerCallback_same w
    have hstep : w.step .expiry = w.timerCallback := rfl
    unfold TimerKept
    rw [hstep, htimer, hsame.prefer, hsame.queue]
    exact hkept
  | stopped =>
    refine iff_of_true ?_ trivial
    have hstep : w.step .stopped = w.mgrDisable := rfl
    unfold TimerKept
    rw [hstep, mgrDisable_rest.1, mgrDisable_same.prefer, mgrDisable_same.queue]
    exact hkept

end

theorem SameQueue.dataKept (h : SameQueue w w') (hadv : w'.advData = w.advData)
    (hscan : w'.scanResp = w.scanResp) : w'.DataKept ↔ w.DataKept := by
  unfold DataKept
  rw [hadv, hscan, h.queue, h.update]

theorem dataKept_checkTimer (h : w.Inv) :
    (checkTimer { w with advDataQueue := queue }).DataKept ↔
      queue.length = 1 ∨ DataKept { w with advDataQueue := queue } := by
  obtain ⟨hsame, -, -, -, hadv, hscan⟩ :=
    @checkTimer_spec { w with advDataQueue := queue } h.told h.wanted
  match queue with
  | [] =>
    refine (hsame.dataKept hadv hscan).trans ⟨.inr, fun hor => hor.resolve_left (by decide)⟩
  | [item] =>
    refine iff_of_true ?_ (.inl rfl)
    unfold DataKept
    rw [hadv, hscan, hsame.queue, hsame.update]
    rintro _ ⟨⟩
    refine ⟨item, List.mem_singleton_self item, rfl, fun hupdate => ?_⟩
    dsimp only at hupdate ⊢
    rw [if_pos hupdate]
  | item :: item' :: rest =>
    refine (hsame.dataKept hadv hscan).trans ⟨.inr, fun hor => hor.resolve_left ?_⟩
    simp

theorem dataKept_step (h : w.Inv) (hkept : w.DataKept) (op : Op) :
    (w.step op).DataKept ↔ w.DataSafe op := by
  have hstates : ∀ prefer, (checkState { w with preferState := prefer }).DataKept := by
    intro prefer
    obtain ⟨hsame, -, -, -, hadv, hscan⟩ := @checkState_spec { w with preferState := prefer } h.told
    exact (hsame.dataKept hadv hscan).mpr hkept
  cases op with
  | add ppHandle advData scanResp memory =>
    refine iff_of_true ?_ trivial
    obtain heq | ⟨item, -, -, heq⟩ := @step_add w ppHandle advData scanResp memory
    . rw [heq]
      exact hkept
    . rw [heq]
      refine (dataKept_checkTimer h).mpr (.inr fun advData hadv => ?_)
      obtain ⟨item', hmem, hitem'⟩ := hkept advData hadv
      exact ⟨item', List.mem_append_left _ hmem, hitem'⟩
  | del handle =>
    obtain ⟨heq, hnot⟩ | ⟨handle, rfl, hmem, heq⟩ := @step_del w handle
    . rw [heq]
      refine iff_of_true hkept ?_
      cases handle with
      | none => trivial
      | some handle =>
        rintro item hitem rfl
        exact absurd (List.mem_map_of_mem hitem) (hnot _ rfl)
    . rw [heq, dataKept_checkTimer h]
      have hinj := List.inj_on_of_nodup_map h.data
      constructor
      . rintro (hone | hkept') item hitem hhandle hadv
        . exact hone
        . obtain ⟨item', hmem', heq', -⟩ := hkept' item.advData hadv
          have hmem' := List.mem_filter.mp hmem'
          rw [hinj hmem'.1 hitem heq'] at hmem'
          simp [hhandle] at hmem'
      . intro hsafe
        by_cases hone : (w.advDataQueue.filter (·.handle != handle)).length = 1
        . exact .inl hone
        . refine .inr fun advData hadv => ?_
          obtain ⟨item, hitem, rfl, hscan⟩ := hkept advData hadv
          refine ⟨item, List.mem_filter.mpr ⟨hitem, ?_⟩, rfl, hscan⟩
          rw [bne_iff_ne]
          exact fun hhandle => hone (hsafe item hitem hhandle hadv)
  | enable => exact iff_of_true (hstates _) trivial
  | disable => exact iff_of_true (hstates _) trivial
  | connInfo => exact iff_of_true (hstates _) trivial
  | disconnected => exact iff_of_true (hstates _) trivial
  | expiry =>
    refine iff_of_true ?_ trivial
    have hstep : w.step .expiry = w.timerCallback := rfl
    rw [hstep]
    obtain ⟨-, heq⟩ | ⟨item, hitem, heq⟩ := @timerCallback_cases w
    . rw [heq]
      exact hkept
    . rw [heq]
      rintro _ ⟨⟩
      refine ⟨item, List.mem_of_getElem? hitem, rfl, fun hupdate => ?_⟩
      exact if_pos hupdate
  | stopped =>
    refine iff_of_true ?_ trivial
    obtain ⟨-, hadv, hscan, -⟩ := @mgrDisable_rest w
    exact (mgrDisable_same.dataKept hadv hscan).mpr hkept

def nextIdx (idx : UInt8) (count : Nat) : UInt8 :=
  if (idx + 1).toNat ≥ count then 0 else idx + 1

theorem timerCallback_currIdx :
    w.timerCallback.currIdx = nextIdx w.currIdx w.advDataQueue.length := by
  unfold timerCallback nextIdx
  dsimp only
  split <;> rfl

theorem nextIdx_lt {idx : UInt8} {count : Nat} (h : 0 < count) :
    (nextIdx idx count).toNat < count := by
  unfold nextIdx
  split
  . exact h
  . omega

theorem nextIdx_eq (hidx : idx.toNat < count) (hcount : count ≤ 256) :
    (nextIdx idx count).toNat = (idx.toNat + 1) % count := by
  have hadd : (idx + 1).toNat = (idx.toNat + 1) % 256 := by
    rw [UInt8.toNat_add]
    rfl
  have hlt := idx.toNat_lt
  unfold nextIdx
  rw [hadd]
  by_cases hlast : idx.toNat + 1 = count
  . rw [hlast, Nat.mod_self]
    by_cases hfull : count = 256
    . subst hfull
      rw [if_neg (by omega), hadd, hlast]
    . rw [if_pos (by omega)]
      rfl
  . rw [if_neg (by omega), hadd, Nat.mod_eq_of_lt (by omega), Nat.mod_eq_of_lt (by omega)]

theorem checkState_currIdx : w.checkState.currIdx = w.currIdx := by
  unfold checkState
  split
  . split
    . split
      . dsimp only
        split <;> exact mgrEnable_rest.2.2.2
      . rfl
    . exact mgrDisable_rest.2.2.2
  . rfl

theorem quiet_step {op : Op} (hquiet : Quiet op) :
    (w.step op).advDataQueue = w.advDataQueue ∧
      (w.step op).currIdx = if op = .expiry then w.timerCallback.currIdx else w.currIdx := by
  have hstates : ∀ w : World, w.checkState.advDataQueue = w.advDataQueue := by
    intro w
    unfold checkState
    split
    . split
      . split
        . dsimp only
          split <;> exact mgrEnable_same.queue
        . rfl
      . exact mgrDisable_same.queue
    . rfl
  cases op with
  | add | del => exact hquiet.elim
  | enable => exact ⟨hstates _, checkState_currIdx⟩
  | disable => exact ⟨hstates _, checkState_currIdx⟩
  | connInfo => exact ⟨hstates _, checkState_currIdx⟩
  | disconnected => exact ⟨hstates _, checkState_currIdx⟩
  | expiry => exact ⟨timerCallback_same.1.queue, rfl⟩
  | stopped => exact ⟨mgrDisable_same.queue, mgrDisable_rest.2.2.2⟩

theorem visited_eq (hquiet : ∀ op ∈ ops, Quiet op)
    (hpos : 0 < w.advDataQueue.length) (hcount : w.advDataQueue.length ≤ 256) :
    (w.visited ops).map some = (List.range (ops.count .expiry)).map fun k =>
      w.advDataQueue[((nextIdx w.currIdx w.advDataQueue.length).toNat + k) %
        w.advDataQueue.length]? := by
  induction ops generalizing w with
  | nil => rfl
  | cons op ops ih =>
    obtain ⟨hqueue, hidx⟩ := @quiet_step w op (hquiet op List.mem_cons_self)
    have htail := ih (fun op hop => hquiet op (List.mem_cons_of_mem _ hop)) (hqueue ▸ hpos)
      (hqueue ▸ hcount)
    rw [hqueue, hidx] at htail
    unfold visited
    rw [List.map_append]
    by_cases hop : op = .expiry
    . subst hop
      have hlt := @nextIdx_lt w.currIdx _ hpos
      rw [if_pos rfl, timerCallback_currIdx] at htail
      unfold handed
      rw [timerCallback_currIdx, htail, List.count_cons_self, List.range_succ_eq_map,
        List.map_cons, List.map_map, Nat.add_zero, Nat.mod_eq_of_lt hlt,
        List.getElem?_eq_getElem hlt, nextIdx_eq hlt hcount]
      refine congrArg (List.cons _) (List.map_congr_left fun k _ => ?_)
      rw [Function.comp_apply, Nat.mod_add_mod, Nat.succ_eq_add_one, Nat.add_right_comm,
        Nat.add_assoc]
    . have hnone : w.handed op = [] := by
        cases op <;> first | rfl | exact absurd rfl hop
      rw [if_neg hop] at htail
      rw [htail, List.count_cons_of_ne hop, hnone]
      rfl

theorem visited_low (hquiet : ∀ op ∈ ops, Quiet op)
    (hitem : item ∈ w.visited ops) : ∃ i < 256, w.advDataQueue[i]? = some item := by
  induction ops generalizing w with
  | nil => cases hitem
  | cons op ops ih =>
    obtain ⟨hqueue, -⟩ := @quiet_step w op (hquiet op List.mem_cons_self)
    unfold visited at hitem
    obtain hhead | htail := List.mem_append.mp hitem
    . cases op with
      | expiry =>
        exact ⟨_, UInt8.toNat_lt _, Option.mem_toList.mp hhead⟩
      | _ => cases hhead
    . rw [← hqueue]
      exact ih (fun op hop => hquiet op (List.mem_cons_of_mem _ hop)) htail

theorem rounds_iff (h : w.Inv) : w.Rounds ↔ w.advDataQueue.length ≤ 256 := by
  constructor
  . intro hrounds
    by_contra hmany
    have hlt : 256 < w.advDataQueue.length := by omega
    have hquiet : ∀ op ∈ List.replicate w.advDataQueue.length Op.expiry, Quiet op := by
      intro op hop
      rw [List.eq_of_mem_replicate hop]
      trivial
    have hperm := hrounds _ hquiet List.count_replicate_self
    obtain ⟨i, hi, hitem⟩ := visited_low hquiet (hperm.mem_iff.mpr (List.getElem_mem hlt))
    obtain ⟨hilt, hsame⟩ := List.getElem?_eq_some_iff.mp hitem
    have hnodup : w.advDataQueue.Nodup := h.handles.of_map _
    rw [hnodup.getElem_inj_iff] at hsame
    omega
  . intro hcount ops hquiet hexpiries
    by_cases hpos : 0 < w.advDataQueue.length
    . have hvisited := visited_eq hquiet hpos hcount
      rw [hexpiries] at hvisited
      have hrotate : w.visited ops =
          w.advDataQueue.rotate (nextIdx w.currIdx w.advDataQueue.length).toNat := by
        refine List.map_injective_iff.mpr (fun _ _ => Option.some.inj) (hvisited.trans ?_)
        refine List.ext_getElem (by simp) fun k hk hk' => ?_
        have hklt : k < w.advDataQueue.length := by simpa using hk
        rw [List.getElem_map, List.getElem_map, List.getElem_range, List.getElem_rotate,
          List.getElem?_eq_getElem (Nat.mod_lt _ hpos)]
        simp only [Nat.add_comm k]
      rw [hrotate]
      exact List.rotate_perm _ _
    . have hempty : w.advDataQueue = [] := List.eq_nil_of_length_eq_zero (by omega)
      have hnone : w.visited ops = [] := by
        refine List.eq_nil_iff_forall_not_mem.mpr fun item hitem => ?_
        obtain ⟨i, -, hi⟩ := visited_low hquiet hitem
        rw [hempty] at hi
        cases hi
      rw [hnone, hempty]

theorem init_inv (updateScanData : Bool) : (init updateScanData).Inv :=
  ⟨rfl, nofun, nofun, List.nodup_nil, List.nodup_nil⟩

theorem ble_adv_data_rotates (updateScanData : Bool) (ops : List Op) :
    (Run.Always step TimerKept (init updateScanData) ops ↔
      Run.Along step TimerSafe (init updateScanData) ops) ∧
    Run.Always step RequestKept (init updateScanData) ops ∧
    (Run.Always step DataKept (init updateScanData) ops ↔
      Run.Along step DataSafe (init updateScanData) ops) ∧
    Run.Always step (fun w => w.Rounds ↔ w.advDataQueue.length ≤ 256) (init updateScanData)
      ops := by
  have hstep : ∀ (w : World) op, w.Inv → (w.step op).Inv := fun w op hw => hw.step op
  have hinit := init_inv updateScanData
  refine ⟨?_, ?_, ?_, ?_⟩
  . refine Run.always_iff hstep (fun w op hw hkept => timerKept_step hw hkept op) _ ops hinit ?_
    exact iff_of_false Bool.false_ne_true fun h => (nomatch h.1)
  . exact Run.always_of_inv hstep (fun w hw => hw.request) _ ops hinit
  . refine Run.always_iff hstep (fun w op hw hkept => dataKept_step hw hkept op) _ ops hinit ?_
    exact nofun
  . exact Run.always_of_inv hstep (fun w hw => rounds_iff hw) _ ops hinit

theorem not_ble_adv_data_rotates :
    ¬(Run.exec step (init false) [
        .add true ⟨3, 100⟩ ⟨0, 0⟩ (some 1), .add true ⟨3, 200⟩ ⟨0, 0⟩ (some 2),
        .enable, .stopped, .disable]).TimerKept ∧
    ¬(Run.exec step (init false) [
        .add true ⟨3, 100⟩ ⟨0, 0⟩ (some 1), .add true ⟨3, 200⟩ ⟨0, 0⟩ (some 2),
        .add true ⟨3, 300⟩ ⟨0, 0⟩ (some 3), .enable, .del (some 1)]).DataKept := by
  refine ⟨fun h => ?_, fun h => ?_⟩
  . exact absurd (h.mp (by decide)) (by decide)
  . obtain ⟨item, hitem, heq, -⟩ := h ⟨3, 100⟩ (by decide)
    revert heq
    revert item
    decide

end World

end BleAdvData
